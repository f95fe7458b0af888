import SwarmSampler.Sampler.Task

/-
One order of turns: tasks that can go on take turns in the order they became
ready, and the clock jumps to the next instant something waits for when no task
can. An operator starts and cancels runs and waits for them. A run may also be
the operator's own, which gets a turn when no other task is ready.
-/

namespace SwarmSampler

/-- A sampler with the tasks it has in the order of their turns. -/
structure Schedule (κ τ σ : Type) where
  sampler : Sampler κ τ σ
  ready : List Task
  /-- The tasks that cannot go on, those that have waited longest first. -/
  waiting : List Task
  /-- The operator's own run. -/
  own : Option Nat
  /-- Instants at which all runs are to be cancelled. -/
  alarms : List Nat

namespace Schedule

variable {κ τ σ : Type}

def ofSampler (sampler : Sampler κ τ σ) : Schedule κ τ σ := ⟨sampler, [], [.writer], none, []⟩

/-- Moves the tasks that can go on to the ready ones. -/
def wake (s : Schedule κ τ σ) : Schedule κ τ σ :=
  let (up, waiting) := s.waiting.partition s.sampler.awake
  { s with ready := s.ready ++ up, waiting := waiting }

/-- Changes the sampler, which may let tasks go on. -/
def change (s : Schedule κ τ σ) (f : Sampler κ τ σ → Sampler κ τ σ) : Schedule κ τ σ :=
  { s with sampler := f s.sampler }.wake

/-- Whether a run is the operator's own. -/
def isOwn (s : Schedule κ τ σ) (t : Task) : Bool := s.own.any fun run => t = .run run

/-- Gives a task a turn. Checks it starts are ready after all others; the task itself waits again
unless it is over. -/
def give [SwarmClient κ τ] [SampleStore σ] (t : Task) (s : Schedule κ τ σ) : Schedule κ τ σ :=
  let sampler := s.sampler.resume t
  let fresh := sampler.started - s.sampler.started
  { s with
    sampler := sampler
    ready := s.ready ++ (List.range' s.sampler.started fresh).map Task.check
    waiting := if sampler.alive t && !s.isOwn t then s.waiting ++ [t] else s.waiting }.wake

def dues (s : Schedule κ τ σ) : List Nat :=
  s.waiting.filterMap s.sampler.due? ++ (s.own.bind s.sampler.runDue?).toList ++ s.alarms

def jump (instant : Nat) (s : Schedule κ τ σ) : Schedule κ τ σ :=
  let sampler := { s.sampler with now := instant }
  if s.alarms.any (· ≤ instant) then
    { s with sampler := sampler.cancel, alarms := s.alarms.filter (instant < ·) }.wake
  else { s with sampler := sampler }.wake

/-- One step, none if there is nothing to wait for. The clock does not pass the horizon. -/
def step [SwarmClient κ τ] [SampleStore σ] (horizon : Option Nat) (s : Schedule κ τ σ) :
    Option (Schedule κ τ σ) :=
  match s.ready with
  | t :: rest => some ({ s with ready := rest }.give t)
  | [] =>
    match s.own.filter s.sampler.runAwake with
    | some run => some (s.give (.run run))
    | none => ((s.dues ++ horizon.toList).min?).map (s.jump ·)

/-- Goes on until some condition holds or the clock reaches the horizon, at most so many steps. -/
def goUntil [SwarmClient κ τ] [SampleStore σ] (done : Schedule κ τ σ → Bool)
    (horizon : Option Nat) : Nat → Schedule κ τ σ → Schedule κ τ σ
  | 0, s => s
  | steps + 1, s =>
    if done s || horizon.any (· ≤ s.sampler.now) then s
    else
      match s.step horizon with
      | some s => goUntil done horizon steps s
      | none => s

/-- More steps than any wait takes. -/
def patience : Nat := 1_000_000_000_000_000_000

def sleep [SwarmClient κ τ] [SampleStore σ] (s : Schedule κ τ σ) (nanos : Nat) : Schedule κ τ σ :=
  s.goUntil (fun _ => false) (some (s.sampler.now + min nanos Span.longestWait)) patience

/-- Cancels all runs, at once or after some time. -/
def cancelAfter (s : Schedule κ τ σ) (nanos : Nat) : Schedule κ τ σ :=
  if nanos = 0 then s.change Sampler.cancel
  else { s with alarms := s.alarms ++ [s.sampler.now + nanos] }

def start (s : Schedule κ τ σ) : Nat × Schedule κ τ σ :=
  let run := s.sampler.runs.length
  (run, { s with sampler := s.sampler.addRun true, ready := s.ready ++ [.run run] })

/-- Goes through a cycle of the operator's own and answers what it came to. -/
def cycle [SwarmClient κ τ] [SampleStore σ] (s : Schedule κ τ σ) :
    Option (Except Failure CycleSummary) × Schedule κ τ σ :=
  let run := s.sampler.runs.length
  let begun := { s with sampler := s.sampler.addRun false, own := some run }.give (.run run)
  let s := begun.goUntil (fun s => (s.sampler.result? run).isSome) none patience
  ((s.sampler.lastPass? run).map (·.result), { s with own := none })

/-- Waits for a run to end, up to an instant if one is given. -/
def wait [SwarmClient κ τ] [SampleStore σ] (s : Schedule κ τ σ) (run : Nat)
    (horizon : Option Nat) : Schedule κ τ σ :=
  if (s.sampler.result? run).isSome then s
  else
    s.goUntil (fun s => s.ready.isEmpty && (s.sampler.result? run).isSome) horizon patience

def stop [SwarmClient κ τ] [SampleStore σ] (s : Schedule κ τ σ) (run : Nat) : Schedule κ τ σ :=
  (s.change (·.cancelRun run)).wait run none

/-- Starts a run and waits for its end, cancelling it if it is interrupted before that. -/
def runUntilShutdown [SwarmClient κ τ] [SampleStore σ] (s : Schedule κ τ σ)
    (interruptAt : Option Nat) : Option (Except Failure Unit) × Schedule κ τ σ :=
  let (run, s) := s.start
  let s := s.wait run interruptAt
  let s := if (s.sampler.result? run).isSome then s else s.stop run
  (s.sampler.result? run, s)

end Schedule

end SwarmSampler
