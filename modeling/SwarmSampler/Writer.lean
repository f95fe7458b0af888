import SwarmSampler.Store.Access

/-
The one writer in front of the store. Requests are queued and handled one at a
time in the order they came; a store call that fails is made again after a
pause, a few times. Too many failed requests in a row make the writer give up
on the store for good. The writer may be killed, which takes effect at its next
turn; requests it has not answered by then are answered as lost.
-/

namespace SwarmSampler

/-- How persistent a writer is. -/
structure WriterSettings where
  writeAttempts : UInt32
  retryDelay : Span
  failureThreshold : UInt32

/-- How many requests the writer's queue holds; later ones stand in line before it. -/
def queueDepth : Nat := 256

/-- A sample to append, with the number its answer goes to. -/
structure AppendRequest where
  ticket : Nat
  sample : HealthSample
  metrics : Option MetricsSnapshot

/-- What the writer is doing. -/
inductive Writing
  | idle
  /-- Pausing before another call for a request. -/
  | retrying (request : AppendRequest) (attempt : Nat) (wakeAt : Nat)

abbrev AppendAnswer := Except Failure HealthSample

/-- A writer with its queue and all it has done. -/
structure Writer where
  settings : WriterSettings
  writing : Writing
  /-- Requests not begun, in the order they came. -/
  pending : List AppendRequest
  /-- How many requests have failed in a row. -/
  failures : UInt32
  killed : Bool
  stopped : Bool
  /-- The instants of all store calls. -/
  calls : List Nat
  /-- All answers by ticket, in the order they were given. -/
  answers : List (Nat × AppendAnswer)

namespace Writer

variable {σ : Type}

def start (settings : WriterSettings) : Writer := ⟨settings, .idle, [], 0, false, false, [], []⟩

/-- How often the store is called for a request, at the most. -/
def tries (w : Writer) : Nat := max 1 w.settings.writeAttempts.toNat

/-- The writer has stopped before a request could be queued. -/
def gone : Failure := ⟨.storeUnavailable, "sample writer has stopped"⟩

/-- The writer has stopped with a request in its queue. -/
def lost : Failure := ⟨.storeUnavailable, "sample writer dropped the request"⟩

def givenUp (failures : UInt32) : Failure :=
  ⟨.storeUnavailable, toString failures.toNat ++ " consecutive writes failed"⟩

/-- All calls for a request have failed, the last one with some error. -/
def exhausted (w : Writer) (request : AppendRequest) (last : Failure) : Failure :=
  ⟨.storeWrite, "target " ++ request.sample.targetId ++ ": " ++ last.message ++ " (after " ++
    toString w.tries ++ " attempts)"⟩

def answer (w : Writer) (ticket : Nat) (a : AppendAnswer) : Writer :=
  { w with answers := w.answers ++ [(ticket, a)] }

def answer? (w : Writer) (ticket : Nat) : Option AppendAnswer := w.answers.lookup ticket

def send (w : Writer) (request : AppendRequest) : Writer :=
  if w.stopped then w.answer request.ticket (.error gone)
  else { w with pending := w.pending ++ [request] }

/-- Kills the writer at its next turn. -/
def kill (w : Writer) : Writer := { w with killed := true }

/-- Answers a request whose last call failed. A request that fills the measure of failures makes
the store unavailable. -/
def fail (w : Writer) (request : AppendRequest) (last : Failure) : Writer :=
  let failure := w.exhausted request last
  let w := { w with failures := w.failures + 1 }
  if w.settings.failureThreshold ≤ w.failures then
    w.answer request.ticket (.error ⟨.storeUnavailable, failure.message⟩)
  else w.answer request.ticket (.error failure)

/-- Calls the store for a request until it takes the sample, the calls are used up, or a pause is
due. -/
def write [SampleStore σ] (now : Nat) (request : AppendRequest) (attempt : Nat) (w : Writer)
    (store : σ) : Writer × σ :=
  let w := { w with calls := w.calls ++ [now] }
  match SampleStore.append request.sample request.metrics store with
  | (.ok stored, store) =>
    ({ w with failures := 0, writing := .idle }.answer request.ticket (.ok stored), store)
  | (.error last, store) =>
    if attempt < w.tries then
      if w.settings.retryDelay.nanos = 0 then write now request (attempt + 1) w store
      else
        ({ w with writing := .retrying request (attempt + 1) (now + w.settings.retryDelay.wait) },
          store)
    else ({ w with writing := .idle }.fail request last, store)
termination_by w.tries - attempt
decreasing_by
  show w.tries - (attempt + 1) < w.tries - attempt
  have : attempt < w.tries := by assumption
  omega

/-- Handles a request: without a call if the store has been given up. -/
def handle [SampleStore σ] (now : Nat) (request : AppendRequest) (w : Writer) (store : σ) :
    Writer × σ :=
  if w.settings.failureThreshold ≤ w.failures then
    (w.answer request.ticket (.error (givenUp w.failures)), store)
  else w.write now request 1 store

/-- Handles requests in turn until one of them has to pause. -/
def drain [SampleStore σ] (now : Nat) : List AppendRequest → Writer → σ → Writer × σ
  | [], w, store => ({ w with pending := [] }, store)
  | request :: rest, w, store =>
    let (w, store) := w.handle now request store
    match w.writing with
    | .idle => drain now rest w store
    | .retrying _ _ _ => ({ w with pending := rest }, store)

/-- The request in hand. -/
def current (w : Writer) : List AppendRequest :=
  match w.writing with
  | .idle => []
  | .retrying request _ _ => [request]

/-- Stops for good. What was in hand or in the queue is lost, what stood in line never got in. -/
def stop (w : Writer) : Writer :=
  let refuse (f : Failure) (r : AppendRequest) : Nat × AppendAnswer := (r.ticket, .error f)
  { w with
    writing := .idle
    pending := []
    stopped := true
    answers := w.answers ++ (w.current ++ w.pending.take queueDepth).map (refuse lost) ++
      (w.pending.drop queueDepth).map (refuse gone) }

def goOn [SampleStore σ] (now : Nat) (w : Writer) (store : σ) : Writer × σ :=
  match w.writing with
  | .idle => drain now w.pending w store
  | .retrying request attempt wakeAt =>
    if wakeAt ≤ now then
      let (w, store) := w.write now request attempt store
      match w.writing with
      | .idle => drain now w.pending w store
      | .retrying _ _ _ => (w, store)
    else (w, store)

def resume [SampleStore σ] (now : Nat) (w : Writer) (store : σ) : Writer × σ :=
  if w.stopped then (w, store)
  else if w.killed then (w.stop, store)
  else w.goOn now store

def due? (w : Writer) : Option Nat :=
  match w.writing with
  | .idle => none
  | .retrying _ _ wakeAt => some wakeAt

def awake (now : Nat) (w : Writer) : Bool :=
  !w.stopped &&
    (w.killed ||
      match w.writing with
      | .idle => !w.pending.isEmpty
      | .retrying _ _ wakeAt => wakeAt ≤ now)

end Writer

end SwarmSampler
