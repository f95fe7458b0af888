import SwarmSampler.Sampler.Run

/-
The tasks of a sampler and their turns. Any order of turns is a way the sampler
may go; time passes between turns.
-/

namespace SwarmSampler

/-- What takes turns. -/
inductive Task
  | run (id : Nat)
  | check (id : Nat)
  | writer
  deriving DecidableEq

namespace Sampler

variable {κ τ σ : Type}

def resumeWriter [SampleStore σ] (s : Sampler κ τ σ) : Sampler κ τ σ :=
  let (writer, store) := s.writer.resume s.now s.store
  { s with writer := writer, store := store }

def resume [SwarmClient κ τ] [SampleStore σ] (s : Sampler κ τ σ) : Task → Sampler κ τ σ
  | .run id => s.resumeRun id
  | .check id => s.resumeCheck id
  | .writer => s.resumeWriter

def awake (s : Sampler κ τ σ) : Task → Bool
  | .run id => s.runAwake id
  | .check id => s.checkAwake id
  | .writer => s.writer.awake s.now

def due? (s : Sampler κ τ σ) : Task → Option Nat
  | .run id => s.runDue? id
  | .check id => s.checkDue? id
  | .writer => s.writer.due?

def alive (s : Sampler κ τ σ) : Task → Bool
  | .run id =>
    match s.runs[id]? with
    | some { phase := .over _, .. } => false
    | some _ => true
    | none => false
  | .check id => (s.check? id).isSome
  | .writer => !s.writer.stopped

/-- Cancels all runs, for good. -/
def cancel (s : Sampler κ τ σ) : Sampler κ τ σ := { s with halted := true }

def cancelRun (s : Sampler κ τ σ) (run : Nat) : Sampler κ τ σ :=
  s.withRun run fun r => { r with halted := true }

def addRun (s : Sampler κ τ σ) (repeats : Bool) : Sampler κ τ σ :=
  { s with runs := s.runs ++ [.start repeats] }

def result? (s : Sampler κ τ σ) (run : Nat) : Option (Except Failure Unit) :=
  match s.runs[run]? with
  | some { phase := .over result, .. } => some result
  | _ => none

def lastPass? (s : Sampler κ τ σ) (run : Nat) : Option Pass :=
  (s.runs[run]?).bind (·.passes.getLast?)

end Sampler

end SwarmSampler
