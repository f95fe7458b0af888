import SwarmSampler.Writer

/-
A writer on its own, with its store and a clock that stands still while the
writer has something to do and then jumps to the instant it waits for.
-/

namespace SwarmSampler

/-- A writer at an instant. -/
structure WriterRun (σ : Type) where
  now : Nat
  writer : Writer
  store : σ

namespace WriterRun

variable {σ : Type}

def send (r : WriterRun σ) (request : AppendRequest) : WriterRun σ :=
  { r with writer := r.writer.send request }

def kill (r : WriterRun σ) : WriterRun σ := { r with writer := r.writer.kill }

def turn [SampleStore σ] (r : WriterRun σ) : WriterRun σ :=
  let (writer, store) := r.writer.resume r.now r.store
  { r with writer := writer, store := store }

/-- Lets the writer go on until it has nothing to do, or up to an instant if one is given; it gets
no turn at that instant. -/
def advance [SampleStore σ] (horizon : Option Nat) : Nat → WriterRun σ → WriterRun σ
  | 0, r => r
  | fuel + 1, r =>
    if horizon.any (· ≤ r.now) then r
    else if r.writer.awake r.now then advance horizon fuel r.turn
    else
      match r.writer.due?, horizon with
      | none, none => r
      | none, some h => { r with now := h }
      | some t, none => advance horizon fuel { r with now := t }
      | some t, some h => if t < h then advance horizon fuel { r with now := t } else { r with now := h }

/-- Enough steps for all there is to do: a turn and a pause for each call of each request. -/
def steps (w : Writer) : Nat := 2 * (w.pending.length + 2) * (w.tries + 1)

/-- Lets the writer go on up to an instant. -/
def advanceTo [SampleStore σ] (instant : Nat) (r : WriterRun σ) : WriterRun σ :=
  r.advance (some instant) (steps r.writer)

/-- Lets the writer go on until it has nothing to do. -/
def settle [SampleStore σ] (r : WriterRun σ) : WriterRun σ := r.advance none (steps r.writer)

end WriterRun

end SwarmSampler
