import SwarmSampler.Check.Run

/-
A check as one recursion over its attempts: from the beginning of an attempt to
the beginning of the next, with the places where a cancellation may fall in.
The check itself goes on from wait to wait and passes over waits that take no
time; `pursue_eq` says that both come to the same.
-/

namespace SwarmSampler.Probe

variable {κ τ : Type} [SwarmClient κ τ]

/-- A check from the beginning of an attempt to its end. -/
def pursue (cancelAt : Option Nat) (now : Nat) (attempt : UInt32) (p : Probe τ) (client : κ) :
    Option CheckRun × κ :=
  match SwarmClient.ask now p.magnet p.policy.queryTimeout client with
  | (.crashed, client) => (none, client)
  | (.underway query, client) =>
    let answer := query.within p.policy.attemptDeadline
    match cancelAt.filter (· ≤ now + answer.1) with
    | some instant =>
      (some ⟨p.aborted attempt, instant⟩, SwarmClient.leave query.session (instant - now) client)
    | none =>
      let client := SwarmClient.leave query.session answer.1 client
      let a : Attempt := ⟨attempt, now, answer.2⟩
      match _h : p.outcomeWith a with
      | some o => (some ⟨o, now + answer.1⟩, client)
      | none =>
        let next := now + answer.1 + p.policy.backoff.wait
        match cancelAt.filter (· ≤ next) with
        | some instant => (some ⟨(p.record a).aborted attempt, instant⟩, client)
        | none => pursue cancelAt next (attempt + 1) (p.record a) client
termination_by p.policy.maxAttempts.toNat - attempt.toNat
decreasing_by exact tries_decrease (CheckState.lt_of_outcome?_afterResult _h)

/-- What follows a turn at an instant. -/
def finish (cancelAt : Option Nat) (now : Nat) : Progress τ × κ → Option CheckRun × κ
  | (.waiting p, client) => p.run cancelAt client
  | (.settled o, client) => (some ⟨o, now⟩, client)
  | (.crashed, client) => (none, client)

theorem finish_waiting (cancelAt : Option Nat) (now : Nat) (p : Probe τ) (client : κ) :
    finish cancelAt now (.waiting p, client) = p.run cancelAt client := rfl

theorem run_eq (cancelAt : Option Nat) (p : Probe τ) (client : κ) :
    p.run cancelAt client =
      match cancelAt.filter (· ≤ p.due) with
      | some instant => (some ⟨(p.abort instant client).1, instant⟩, (p.abort instant client).2)
      | none => finish cancelAt p.due (p.proceed p.due client) := by
  rw [run]
  cases h : cancelAt.filter (· ≤ p.due) with
  | some instant => rfl
  | none => dsimp only; split <;> simp_all [finish]

/-- The check waiting for something else. -/
def inPhase (p : Probe τ) (phase : CheckPhase τ) : Probe τ := { p with phase := phase }

theorem begin_of_crashed {now : Nat} {attempt : UInt32} {p : Probe τ} {phase : CheckPhase τ}
    {client client' : κ}
    (h : SwarmClient.ask now p.magnet p.policy.queryTimeout client = (.crashed, client')) :
    begin now attempt (p.inPhase phase) client = (.crashed, client') := by
  rw [begin]
  simp only [inPhase, h]

/-- An attempt that takes no time is concluded in the turn that begins it. -/
theorem begin_of_underway {now : Nat} {attempt : UInt32} {p : Probe τ} {phase : CheckPhase τ}
    {client client' : κ} {query : Query τ}
    (h : SwarmClient.ask now p.magnet p.policy.queryTimeout client = (.underway query, client')) :
    begin now attempt (p.inPhase phase) client =
      if (query.within p.policy.attemptDeadline).1 = 0 then
        conclude now ⟨attempt, now, (query.within p.policy.attemptDeadline).2⟩ (p.inPhase phase)
          (SwarmClient.leave query.session 0 client')
      else (.waiting (p.inPhase (.asking attempt now query)), client') := by
  rw [begin]
  simp only [inPhase, h]
  by_cases h0 : (query.within p.policy.attemptDeadline).1 = 0
  · simp only [h0, ne_eq, not_true_eq_false, if_false, if_true]
    unfold conclude
    split <;> simp_all
  · simp only [h0, ne_eq, not_false_eq_true, if_true, if_false]

theorem finish_conclude_of_some {cancelAt : Option Nat} {now : Nat} {a : Attempt} {p : Probe τ}
    {phase : CheckPhase τ} {client : κ} {o : CheckOutcome} (ho : p.outcomeWith a = some o) :
    finish cancelAt now (conclude now a (p.inPhase phase) client) = (some ⟨o, now⟩, client) := by
  have ho' : (p.inPhase phase).outcomeWith a = some o := ho
  simp only [conclude, ho', finish]

/-- After an attempt that does not end the check comes a pause, which a cancellation may cut. -/
theorem finish_conclude_of_none {cancelAt : Option Nat} {now : Nat} {a : Attempt} {p : Probe τ}
    (phase : CheckPhase τ) (client : κ) (ho : p.outcomeWith a = none)
    (h : cancelAt.filter (· ≤ now) = none) :
    ∃ phase', finish cancelAt now (conclude now a (p.inPhase phase) client) =
      match cancelAt.filter (· ≤ now + p.policy.backoff.wait) with
      | some instant => (some ⟨(p.record a).aborted a.number, instant⟩, client)
      | none =>
        finish cancelAt (now + p.policy.backoff.wait)
          (begin (now + p.policy.backoff.wait) (a.number + 1) ((p.record a).inPhase phase') client) := by
  have ho' : (p.inPhase phase).outcomeWith a = none := ho
  have hp : (p.inPhase phase).policy = p.policy := rfl
  simp only [conclude, ho', hp]
  by_cases h0 : p.policy.backoff.nanos = 0
  · have hw : p.policy.backoff.wait = 0 := Span.wait_of_nanos_eq_zero h0
    exact ⟨phase, by simp only [h0, if_true, hw, Nat.add_zero, h]; rfl⟩
  · refine ⟨.resting (a.number + 1) (now + p.policy.backoff.wait), ?_⟩
    rw [if_neg h0, finish_waiting, run_eq]
    have hr : ((p.inPhase phase).record a).rest now (a.number + 1) =
        (p.record a).inPhase (.resting (a.number + 1) (now + p.policy.backoff.wait)) := rfl
    have hd : ((p.record a).inPhase (.resting (a.number + 1) (now + p.policy.backoff.wait))).due =
        now + p.policy.backoff.wait := rfl
    rw [hr, hd]
    cases hc : cancelAt.filter (· ≤ now + p.policy.backoff.wait) with
    | some instant =>
      have hn : a.number + 1 - 1 = a.number := by simp
      simp only [abort, inPhase, hn]
      rfl
    | none => rfl

/-- A query that is not cancelled is left at the end of its attempt, which is then concluded. -/
theorem finish_begin_of_underway {cancelAt : Option Nat} {now : Nat} {p : Probe τ} {client client' : κ}
    {query : Query τ} (attempt : UInt32) (phase : CheckPhase τ)
    (hask : SwarmClient.ask now p.magnet p.policy.queryTimeout client = (.underway query, client'))
    (h : cancelAt.filter (· ≤ now + (query.within p.policy.attemptDeadline).1) = none) :
    ∃ phase', finish cancelAt now (begin now attempt (p.inPhase phase) client) =
      finish cancelAt (now + (query.within p.policy.attemptDeadline).1)
        (conclude (now + (query.within p.policy.attemptDeadline).1)
          ⟨attempt, now, (query.within p.policy.attemptDeadline).2⟩ (p.inPhase phase')
          (SwarmClient.leave query.session (query.within p.policy.attemptDeadline).1 client')) := by
  rw [begin_of_underway hask]
  by_cases h0 : (query.within p.policy.attemptDeadline).1 = 0
  · exact ⟨phase, by simp only [h0, if_true, Nat.add_zero]⟩
  · refine ⟨.asking attempt now query, ?_⟩
    have hd : (p.inPhase (.asking attempt now query)).due =
        now + (query.within p.policy.attemptDeadline).1 := rfl
    rw [if_neg h0, finish_waiting, run_eq, hd, h]
    rfl

/-- **A check goes from attempt to attempt**, whatever it last waited for. -/
theorem finish_begin (cancelAt : Option Nat) (now : Nat) (attempt : UInt32) (p : Probe τ)
    (client : κ) (phase : CheckPhase τ) (h : cancelAt.filter (· ≤ now) = none) :
    finish cancelAt now (begin now attempt (p.inPhase phase) client) =
      pursue cancelAt now attempt p client := by
  fun_induction pursue cancelAt now attempt p client generalizing phase with
  | case1 now attempt p client client' hask =>
    rw [begin_of_crashed hask]
    rfl
  | case2 now attempt p client query client' hask answer instant hcut =>
    rw [begin_of_underway hask]
    have h0 : answer.1 ≠ 0 := by
      intro h0
      simp [h0, h] at hcut
    have hd : (p.inPhase (.asking attempt now query)).due = now + answer.1 := rfl
    rw [if_neg h0, finish_waiting, run_eq, hd, hcut]
    rfl
  | case3 now attempt p client query client' hask answer hcut client'' a o ho =>
    obtain ⟨phase', hb⟩ := finish_begin_of_underway attempt phase hask hcut
    rw [hb]
    exact finish_conclude_of_some ho
  | case4 now attempt p client query client' hask answer hcut client'' a ho next instant hrest =>
    obtain ⟨phase', hb⟩ := finish_begin_of_underway attempt phase hask hcut
    obtain ⟨_, hc⟩ := finish_conclude_of_none phase' client'' ho hcut
    rw [hb]
    refine hc.trans ?_
    rw [hrest]
  | case5 now attempt p client query client' hask answer hcut client'' a ho next hrest ih =>
    obtain ⟨phase', hb⟩ := finish_begin_of_underway attempt phase hask hcut
    obtain ⟨phase'', hc⟩ := finish_conclude_of_none phase' client'' ho hcut
    rw [hb]
    refine hc.trans ?_
    rw [hrest]
    exact ih phase'' hrest

end SwarmSampler.Probe

namespace SwarmSampler

variable {κ τ : Type} [SwarmClient κ τ]

/-- **A whole check**, which is over at once if it is cancelled at its very beginning. -/
theorem runCheck_eq (client : κ) (magnet : String) (policy : RetryPolicy) (cancelAt : Option Nat) :
    runCheck client magnet policy cancelAt =
      match cancelAt.filter (· ≤ 0) with
      | some instant => (some ⟨(Probe.start (τ := τ) magnet policy).aborted 1, instant⟩, client)
      | none => (Probe.start magnet policy).pursue cancelAt 0 1 client := by
  have hd : (Probe.start (τ := τ) magnet policy).due = 0 := rfl
  rw [runCheck, Probe.run_eq, hd]
  cases h : cancelAt.filter (· ≤ 0) with
  | some instant => rfl
  | none => exact Probe.finish_begin cancelAt 0 1 (.start magnet policy) client .idle h

end SwarmSampler
