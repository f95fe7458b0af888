import SwarmSampler.Sampler.Check

/-
The turns of a run. A cycle lists the targets, registers the eligible ones, and
starts their checks one by one as the pool gives permits. Only when the last of
them is started does it count results, and only a counted failure of the whole
store cancels the checks that are still on their way.
-/

namespace SwarmSampler.Sampler

variable {κ τ σ : Type}

/-- Starts the check of a target, whose task comes last. -/
def startCheck (s : Sampler κ τ σ) (run : Nat) (target : MonitoringTarget) : Sampler κ τ σ :=
  { s with
    started := s.started + 1
    checks := s.checks ++ [⟨s.started, run, target, .probing (.start target.magnet s.plan.policy)⟩] }

/-- Starts checks until no target is left, a permit is missing, or the cycle is cancelled. -/
def startChecks (run : Nat) : List MonitoringTarget → Cycle → Sampler κ τ σ →
    Cycle × Sampler κ τ σ
  | [], cycle, s => ({ cycle with left := [] }, s)
  | target :: left, cycle, s =>
    if s.runHalted run || cycle.halted then
      ({ cycle with left := [] }, { s with pool := s.pool.withdraw run })
    else
      match s.pool.take? run with
      | none =>
        ({ cycle with left := target :: left }, { s with pool := s.pool.enqueue run })
      | some pool =>
        startChecks run left { cycle with uncounted := cycle.uncounted + 1 }
          ({ s with pool := pool }.startCheck run target)

def endCycle (s : Sampler κ τ σ) (run : Nat) (began : Nat) (result : Except Failure CycleSummary) :
    Sampler κ τ σ :=
  s.withRun run fun r =>
    { r with
      passes := r.passes ++ [⟨began, s.now, result⟩]
      phase := r.phaseAfter (s.runHalted run) (s.now + s.plan.cycleInterval.wait) result }

/-- Goes on with a cycle up to its next wait. -/
def goOnCycle (s : Sampler κ τ σ) (run : Nat) (began : Nat) (cycle : Cycle) : Sampler κ τ σ :=
  let (cycle, s) := startChecks run cycle.left cycle s
  if !cycle.left.isEmpty then s.withPhase run (.cycling began cycle)
  else
    let cycle := cycle.takeArrived
    if cycle.uncounted ≠ 0 then s.withPhase run (.cycling began cycle)
    else
      match cycle.fatal with
      | some f => s.endCycle run began (.error f)
      | none => s.endCycle run began (.ok cycle.summary)

/-- Begins a cycle: lists the targets, registers them, and starts their checks. -/
def beginCycle [SampleStore σ] (s : Sampler κ τ σ) (run : Nat) : Sampler κ τ σ :=
  match s.source.targets s.store with
  | .error f => s.endCycle run s.now (.error f)
  | .ok targets =>
    let eligible := eligibleOnce targets
    let (registered, store) :=
      SampleStore.register (s.chance.wall s.drawn) s.source.name eligible s.store
    let selected := s.plan.selection.choose (s.chance.shuffle s.drawn) eligible
    let s := { s with store := store, drawn := s.drawn + 1 }
    match registered with
    | .error f => s.endCycle run s.now (.error f)
    | .ok _ =>
      let summary := CycleSummary.start selected.length (ineligibleCount targets)
      s.goOnCycle run s.now ⟨summary, selected, 0, [], false, none⟩

def resumeRun [SampleStore σ] (s : Sampler κ τ σ) (run : Nat) : Sampler κ τ σ :=
  match s.runs[run]? with
  | none => s
  | some r =>
    match r.phase with
    | .starting =>
      if r.repeats && s.runHalted run then s.withPhase run (.over (.ok ())) else s.beginCycle run
    | .cycling began cycle => s.goOnCycle run began cycle
    | .pausing wakeAt =>
      if s.runHalted run then s.withPhase run (.over (.ok ()))
      else if wakeAt ≤ s.now then s.beginCycle run
      else s
    | .over _ => s

def runAwake (s : Sampler κ τ σ) (run : Nat) : Bool :=
  match s.runs[run]? with
  | none => false
  | some r =>
    match r.phase with
    | .starting => true
    | .cycling _ cycle =>
      if cycle.left.isEmpty then !cycle.arrived.isEmpty || cycle.uncounted = 0
      else s.runHalted run || cycle.halted || s.pool.offers run
    | .pausing wakeAt => s.runHalted run || wakeAt ≤ s.now
    | .over _ => false

def runDue? (s : Sampler κ τ σ) (run : Nat) : Option Nat :=
  match s.runs[run]? with
  | some { phase := .pausing wakeAt, .. } => some wakeAt
  | _ => none

end SwarmSampler.Sampler
