import SwarmSampler.Client
import SwarmSampler.Retry
import SwarmSampler.Sample

/-
One check of one magnet: attempts with pauses between them until the retry
policy settles it, all with a log. A check moves only when its time has come or
it is cancelled, and then goes on until it has to wait again. A cancelled check
asks nothing more.
-/

namespace SwarmSampler

structure Attempt where
  number : UInt32
  startedAt : Nat
  result : QueryResult

/-- What a check has come to. -/
structure CheckOutcome where
  outcome : Outcome
  counts : PeerCounts
  attempts : UInt32
  reason : Option String
  log : List Attempt

def cancelledReason : String := "cancelled"

/-- The most recent error of a log. -/
def lastError (log : List Attempt) : Option QueryError :=
  log.reverse.findSome? fun a =>
    match a.result with
    | .ok _ => none
    | .error e => some e

namespace CheckState

/-- Where the result of an attempt leads after the attempts of a log. An empty answer does not
hide an earlier error. -/
def afterResult (policy : RetryPolicy) (log : List Attempt) (attempt : UInt32)
    (result : QueryResult) : CheckState :=
  match afterAttempt attempt result with
  | empty n none => afterEmpty n (lastError log) policy
  | empty n e => afterEmpty n e policy
  | s => s

def outcome? (log : List Attempt) : CheckState → Option CheckOutcome
  | success attempt counts => some ⟨.ok, counts, attempt, none, log⟩
  | failed attempt reason outcome => some ⟨outcome, .none, attempt, some reason, log⟩
  | _ => none

theorem lt_of_outcome?_afterEmpty {log : List Attempt} {n : UInt32} {e : Option QueryError}
    {policy : RetryPolicy} (h : (afterEmpty n e policy).outcome? log = none) :
    n < policy.maxAttempts := by
  unfold afterEmpty at h
  split at h
  next hlt => exact hlt
  next => cases e <;> simp [outcome?] at h

/-- A result leaves a check open only below the limit of attempts. -/
theorem lt_of_outcome?_afterResult {policy : RetryPolicy} {before log : List Attempt} {n : UInt32}
    {r : QueryResult} (h : (afterResult policy before n r).outcome? log = none) :
    n < policy.maxAttempts := by
  have key : ∀ e, (afterEmpty n e policy).outcome? log = none → n < policy.maxAttempts :=
    fun e => lt_of_outcome?_afterEmpty
  unfold afterResult afterAttempt at h
  cases r with
  | ok counts =>
    by_cases hc : 0 < counts.total
    · simp [hc, outcome?] at h
    · simp only [hc, if_false] at h
      exact key _ h
  | error e =>
    cases e with
    | invalidMagnet detail => simp [outcome?] at h
    | unreachable detail => exact key _ h
    | timeout after => exact key _ h

end CheckState

/-- What a check waits for. -/
inductive CheckPhase (τ : Type)
  /-- For its first turn. -/
  | idle
  /-- For a query to be left. -/
  | asking (attempt : UInt32) (startedAt : Nat) (query : Query τ)
  /-- For the next attempt. -/
  | resting (next : UInt32) (wakeAt : Nat)

/-- A check on its way. -/
structure Probe (τ : Type) where
  magnet : String
  policy : RetryPolicy
  log : List Attempt
  phase : CheckPhase τ

inductive Probe.Progress (τ : Type)
  | waiting (probe : Probe τ)
  | settled (outcome : CheckOutcome)
  | crashed

namespace Probe

variable {κ τ : Type}

def start (magnet : String) (policy : RetryPolicy) : Probe τ := ⟨magnet, policy, [], .idle⟩

/-- The instant at which a check moves of itself. -/
def due (p : Probe τ) : Nat :=
  match p.phase with
  | .idle => 0
  | .asking _ startedAt query => startedAt + (query.within p.policy.attemptDeadline).1
  | .resting _ wakeAt => wakeAt

theorem tries_decrease {n limit : UInt32} (h : n < limit) :
    limit.toNat - (n + 1).toNat < limit.toNat - n.toNat := by
  have hlt : n.toNat < limit.toNat := h
  have hmax := limit.toNat_lt
  have : (n + 1).toNat = n.toNat + 1 := by
    rw [UInt32.toNat_add]
    simp only [UInt32.toNat_one]
    omega
  omega

def record (p : Probe τ) (a : Attempt) : Probe τ := { p with log := p.log ++ [a] }

/-- What a check comes to with an attempt, none if it goes on. -/
def outcomeWith (p : Probe τ) (a : Attempt) : Option CheckOutcome :=
  (CheckState.afterResult p.policy p.log a.number a.result).outcome? (p.log ++ [a])

def rest (p : Probe τ) (now : Nat) (next : UInt32) : Probe τ :=
  { p with phase := .resting next (now + p.policy.backoff.wait) }

/-- Begins an attempt at an instant and goes on until the check waits or is over. -/
def begin [SwarmClient κ τ] (now : Nat) (attempt : UInt32) (p : Probe τ) (client : κ) :
    Progress τ × κ :=
  match SwarmClient.ask now p.magnet p.policy.queryTimeout client with
  | (.crashed, client) => (.crashed, client)
  | (.underway query, client) =>
    let (age, result) := query.within p.policy.attemptDeadline
    if age ≠ 0 then (.waiting { p with phase := .asking attempt now query }, client)
    else
      let client := SwarmClient.leave query.session age client
      let a : Attempt := ⟨attempt, now, result⟩
      match _h : p.outcomeWith a with
      | some o => (.settled o, client)
      | none =>
        if p.policy.backoff.nanos = 0 then begin now (attempt + 1) (p.record a) client
        else (.waiting ((p.record a).rest now (attempt + 1)), client)
termination_by p.policy.maxAttempts.toNat - attempt.toNat
decreasing_by exact tries_decrease (CheckState.lt_of_outcome?_afterResult _h)

/-- Goes on after an attempt that was begun earlier. -/
def conclude [SwarmClient κ τ] (now : Nat) (a : Attempt) (p : Probe τ) (client : κ) :
    Progress τ × κ :=
  match p.outcomeWith a with
  | some o => (.settled o, client)
  | none =>
    if p.policy.backoff.nanos = 0 then begin now (a.number + 1) (p.record a) client
    else (.waiting ((p.record a).rest now (a.number + 1)), client)

/-- Goes on when the check's time has come. -/
def proceed [SwarmClient κ τ] (now : Nat) (p : Probe τ) (client : κ) : Progress τ × κ :=
  match p.phase with
  | .idle => begin now 1 p client
  | .asking attempt startedAt query =>
    let (age, result) := query.within p.policy.attemptDeadline
    conclude now ⟨attempt, startedAt, result⟩ p (SwarmClient.leave query.session age client)
  | .resting next _ => begin now next p client

/-- The outcome of a check cancelled at some attempt. -/
def aborted (p : Probe τ) (attempt : UInt32) : CheckOutcome :=
  ⟨.error, .none, attempt, some cancelledReason, p.log⟩

/-- Ends a check that is cancelled, leaving its query. -/
def abort [SwarmClient κ τ] (now : Nat) (p : Probe τ) (client : κ) : CheckOutcome × κ :=
  match p.phase with
  | .idle => (p.aborted 1, client)
  | .asking attempt startedAt query =>
    (p.aborted attempt, SwarmClient.leave query.session (now - startedAt) client)
  | .resting next _ => (p.aborted (next - 1), client)

/-- One turn of a check at an instant: it ends if it is cancelled, goes on if its time has come,
and waits otherwise. -/
def resume [SwarmClient κ τ] (now : Nat) (cancelled : Bool) (p : Probe τ) (client : κ) :
    Progress τ × κ :=
  if cancelled then
    let (o, client) := p.abort now client
    (.settled o, client)
  else if p.due ≤ now then p.proceed now client
  else (.waiting p, client)

end Probe

end SwarmSampler
