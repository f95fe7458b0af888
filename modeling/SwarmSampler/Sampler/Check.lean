import SwarmSampler.Sampler

/-
The turns of a check's task: the check itself, then a sample with its trend
handed to the writer, then a report once the sample is stored. However it ends,
its permit goes back and its result to its cycle.
-/

namespace SwarmSampler.Sampler

variable {κ τ σ : Type}

def sampleOf (s : Sampler κ τ σ) (target : MonitoringTarget) (o : CheckOutcome) : HealthSample :=
  HealthSample.ofCounts (s.chance.sampleId s.drawn) target.id (s.chance.wall s.drawn) o.counts
    o.outcome o.attempts o.reason

/-- The trend of the stored ok samples and a new one, if that is ok itself. Without a history there
is none. -/
def trendWith [SampleStore σ] (depth : UInt64) (sample : HealthSample) (store : σ) :
    MetricsReading :=
  let depth := if depth < 2 then 2 else depth
  let history :=
    if sample.outcome = .ok then
      (SampleStore.lastOk sample.targetId (depth - 1) store).map (· ++ [sample])
    else SampleStore.lastOk sample.targetId depth store
  match history with
  | .ok samples => .ofSamples peerConfidence samples
  | .error _ => .insufficient 0

/-- What is stored of a trend along with a sample. -/
def trendToStore (sample : HealthSample) (metrics : MetricsReading) : Option MetricsSnapshot :=
  if sample.outcome = .ok then metrics.snapshot? else none

def withStage (s : Sampler κ τ σ) (id : Nat) (stage : CheckStage τ) : Sampler κ τ σ :=
  { s with checks := s.checks.map fun c => if c.id = id then { c with stage := stage } else c }

def deliver (s : Sampler κ τ σ) (run : Nat) (result : CheckResult) : Sampler κ τ σ :=
  s.withRun run fun r =>
    match r.phase with
    | .cycling began cycle =>
      { r with phase := .cycling began { cycle with arrived := cycle.arrived ++ [result] } }
    | _ => r

def endCheck (s : Sampler κ τ σ) (c : CheckTask τ) (result : CheckResult) : Sampler κ τ σ :=
  { s with checks := s.checks.filter (·.id ≠ c.id), pool := s.pool.release }.deliver c.run result

/-- Ends a check's task if the writer has answered. -/
def collect (s : Sampler κ τ σ) (c : CheckTask τ) (metrics : MetricsReading) : Sampler κ τ σ :=
  match s.writer.answer? c.id with
  | none => s
  | some (.ok stored) =>
    let report := CheckReport.ofSample c.target metrics stored
    { s with reports := s.reports ++ [report] }.endCheck c (.reported report)
  | some (.error f) => s.endCheck c (.failed f)

/-- Hands the sample of a settled check to the writer. -/
def submit [SampleStore σ] (s : Sampler κ τ σ) (c : CheckTask τ) (o : CheckOutcome) :
    Sampler κ τ σ :=
  let sample := s.sampleOf c.target o
  let metrics := trendWith s.plan.historyDepth sample s.store
  let writer := s.writer.send ⟨c.id, sample, trendToStore sample metrics⟩
  ({ s with drawn := s.drawn + 1, writer := writer }.withStage c.id (.storing metrics)).collect c
    metrics

def resumeCheck [SwarmClient κ τ] [SampleStore σ] (s : Sampler κ τ σ) (id : Nat) :
    Sampler κ τ σ :=
  match s.check? id with
  | none => s
  | some c =>
    match c.stage with
    | .storing metrics => s.collect c metrics
    | .probing probe =>
      match probe.resume s.now (s.checksHalted c.run) s.client with
      | (.waiting probe, client) => { s with client := client }.withStage id (.probing probe)
      | (.settled o, client) => { s with client := client }.submit c o
      | (.crashed, client) => { s with client := client }.endCheck c .crashed

def checkAwake (s : Sampler κ τ σ) (id : Nat) : Bool :=
  match s.check? id with
  | none => false
  | some c =>
    match c.stage with
    | .storing _ => (s.writer.answer? id).isSome
    | .probing probe => s.checksHalted c.run || probe.due ≤ s.now

def checkDue? (s : Sampler κ τ σ) (id : Nat) : Option Nat :=
  match s.check? id with
  | some { stage := .probing probe, .. } => some probe.due
  | _ => none

end SwarmSampler.Sampler
