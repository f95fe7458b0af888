import SwarmSampler.Catalog
import SwarmSampler.Cycle
import SwarmSampler.Sampler.Pool
import SwarmSampler.Writer

/-
The sampler's state. Runs go through cycles, a cycle's checks are tasks of
their own, and one writer appends what they find; all share a client, a store
and a pool of permits. Nothing here moves by itself: tasks are given turns, and
a turn goes up to the task's next wait.
-/

namespace SwarmSampler

/-- What a sampler was set up for. -/
structure SamplingPlan where
  policy : RetryPolicy
  selection : Selection
  cycleInterval : Span
  historyDepth : UInt64

/-- What is left to chance, each drawn by a number that is used once: the clock's reading, the id
of a new sample, and the order of shuffled targets. -/
structure Chance where
  wall : Nat → Stamp
  sampleId : Nat → String
  shuffle : Nat → List MonitoringTarget → List MonitoringTarget
  shuffle_perm : ∀ n targets, (shuffle n targets).Perm targets

/-- Where a cycle's targets come from. -/
structure TargetSource (σ : Type) where
  name : String
  targets : σ → Except Failure (List MonitoringTarget)

/-- What a check's task is waiting for. -/
inductive CheckStage (τ : Type)
  /-- For the check itself. -/
  | probing (probe : Probe τ)
  /-- For the writer's answer, with the trend to report. -/
  | storing (metrics : MetricsReading)

/-- The task of a check, which holds a permit. Its number is also the ticket of its sample. -/
structure CheckTask (τ : Type) where
  id : Nat
  run : Nat
  target : MonitoringTarget
  stage : CheckStage τ

/-- A cycle on its way. -/
structure Cycle where
  summary : CycleSummary
  /-- Targets whose checks are still to be started. -/
  left : List MonitoringTarget
  /-- How many checks were started and have not been counted. -/
  uncounted : Nat
  /-- Results of checks that are over, in that order, still to be counted. -/
  arrived : List CheckResult
  /-- Whether the cycle's checks are cancelled. -/
  halted : Bool
  /-- The first failure that ends the run. -/
  fatal : Option Failure

namespace Cycle

/-- Counts a result. A failure of the whole store halts the cycle, and the first one is kept. -/
def take (c : Cycle) (result : CheckResult) : Cycle :=
  let c := { c with summary := c.summary.count result, uncounted := c.uncounted - 1 }
  match result with
  | .failed f => if f.fatal then { c with halted := true, fatal := c.fatal.or (some f) } else c
  | _ => c

def takeArrived (c : Cycle) : Cycle := { c.arrived.foldl take c with arrived := [] }

end Cycle

structure Pass where
  began : Nat
  ended : Nat
  result : Except Failure CycleSummary

/-- What a run is waiting for. -/
inductive RunPhase
  /-- For its first turn. -/
  | starting
  | cycling (began : Nat) (cycle : Cycle)
  /-- For the next cycle. -/
  | pausing (wakeAt : Nat)
  | over (result : Except Failure Unit)

/-- A run: one cycle, or cycle after cycle until it is cancelled or fails. -/
structure Run where
  repeats : Bool
  halted : Bool
  phase : RunPhase
  passes : List Pass

namespace Run

def start (repeats : Bool) : Run := ⟨repeats, false, .starting, []⟩

/-- Where a run goes after a cycle: to its end if it does not repeat, if the failure ends it or if
it is cancelled, and to a pause otherwise. -/
def phaseAfter (r : Run) (cancelled : Bool) (wakeAt : Nat) : Except Failure CycleSummary → RunPhase
  | .error f =>
    if !r.repeats || f.fatal then .over (.error f)
    else if cancelled then .over (.ok ())
    else .pausing wakeAt
  | .ok _ => if !r.repeats || cancelled then .over (.ok ()) else .pausing wakeAt

end Run

/-- The whole state. -/
structure Sampler (κ τ σ : Type) where
  plan : SamplingPlan
  chance : Chance
  /-- How often chance has been drawn on. -/
  drawn : Nat
  /-- Nanoseconds since the program's start. -/
  now : Nat
  source : TargetSource σ
  client : κ
  store : σ
  writer : Writer
  pool : Pool
  /-- The checks that are not over. -/
  checks : List (CheckTask τ)
  /-- How many checks were ever started. -/
  started : Nat
  runs : List Run
  /-- All reports in the order they were published. -/
  reports : List CheckReport
  /-- Whether all runs are cancelled, for good. -/
  halted : Bool

namespace Sampler

variable {κ τ σ : Type}

def runHalted (s : Sampler κ τ σ) (run : Nat) : Bool :=
  s.halted || (s.runs[run]?).any (·.halted)

def cycle? (s : Sampler κ τ σ) (run : Nat) : Option Cycle :=
  match s.runs[run]? with
  | some { phase := .cycling _ cycle, .. } => some cycle
  | _ => none

def checksHalted (s : Sampler κ τ σ) (run : Nat) : Bool :=
  s.runHalted run || (s.cycle? run).any (·.halted)

def check? (s : Sampler κ τ σ) (id : Nat) : Option (CheckTask τ) := s.checks.find? (·.id == id)

def withRun (s : Sampler κ τ σ) (run : Nat) (f : Run → Run) : Sampler κ τ σ :=
  { s with runs := s.runs.modify run f }

def withPhase (s : Sampler κ τ σ) (run : Nat) (phase : RunPhase) : Sampler κ τ σ :=
  s.withRun run fun r => { r with phase := phase }

end Sampler

end SwarmSampler
