import SwarmSampler.Check

/-
A check on its own, from the instant zero to its end. It is cancelled at some
instant or never; a cancellation comes before all else at its instant. It ends
because every turn either starts an attempt with a higher number or moves from
an attempt to the pause after it.
-/

namespace SwarmSampler

namespace Probe

variable {κ τ : Type}

/-- Bounds how often a check has to wait yet. -/
def rank (p : Probe τ) : Nat :=
  match p.phase with
  | .idle => 2 * p.policy.maxAttempts.toNat + 4
  | .asking attempt _ _ => 2 * (p.policy.maxAttempts.toNat + 1 - attempt.toNat) + 1
  | .resting next _ => 2 * (p.policy.maxAttempts.toNat + 1 - next.toNat) + 2

theorem lt_of_outcomeWith {p : Probe τ} {a : Attempt} (h : p.outcomeWith a = none) :
    a.number < p.policy.maxAttempts :=
  CheckState.lt_of_outcome?_afterResult h

theorem rank_rest_record {p : Probe τ} {a : Attempt} (h : p.outcomeWith a = none) (now : Nat) :
    ((p.record a).rest now (a.number + 1)).rank ≤
      2 * (p.policy.maxAttempts.toNat + 1 - a.number.toNat) := by
  have hd := tries_decrease (lt_of_outcomeWith h)
  have hlt : a.number.toNat < p.policy.maxAttempts.toNat := lt_of_outcomeWith h
  show 2 * (p.policy.maxAttempts.toNat + 1 - (a.number + 1).toNat) + 2 ≤ _
  omega

theorem rank_begin [SwarmClient κ τ] (now : Nat) (attempt : UInt32) (p p' : Probe τ)
    (client client' : κ) (h : p.begin now attempt client = (.waiting p', client')) :
    p'.rank ≤ 2 * (p.policy.maxAttempts.toNat + 1 - attempt.toNat) + 1 := by
  fun_induction begin now attempt p client generalizing p' client' with
  | case1 => simp at h
  | case2 =>
    simp only [Prod.mk.injEq, Progress.waiting.injEq] at h
    obtain ⟨rfl, _⟩ := h
    exact Nat.le_refl _
  | case3 => simp at h
  | case4 attempt p _ _ _ _ _ _ _ _ _ a ho _ ih =>
    have hd := tries_decrease (lt_of_outcomeWith ho)
    have := ih _ _ h
    have hp : (p.record a).policy = p.policy := rfl
    have ha : a.number = attempt := rfl
    rw [hp] at this
    rw [ha] at hd
    omega
  | case5 attempt p _ _ _ _ _ _ _ _ _ a ho _ =>
    simp only [Prod.mk.injEq, Progress.waiting.injEq] at h
    obtain ⟨rfl, _⟩ := h
    exact Nat.le_succ_of_le (rank_rest_record ho now)

theorem rank_conclude [SwarmClient κ τ] (now : Nat) (a : Attempt) (p p' : Probe τ)
    (client client' : κ) (h : p.conclude now a client = (.waiting p', client')) :
    p'.rank ≤ 2 * (p.policy.maxAttempts.toNat + 1 - a.number.toNat) := by
  unfold conclude at h
  split at h
  next => simp at h
  next ho =>
    have hlt : a.number.toNat < p.policy.maxAttempts.toNat := lt_of_outcomeWith ho
    have hd := tries_decrease (lt_of_outcomeWith ho)
    split at h
    next =>
      have := rank_begin _ _ _ _ _ _ h
      have hp : (p.record a).policy = p.policy := rfl
      rw [hp] at this
      omega
    next =>
      simp only [Prod.mk.injEq, Progress.waiting.injEq] at h
      obtain ⟨rfl, _⟩ := h
      exact rank_rest_record ho now

/-- Every turn of a check that goes on brings its end nearer. -/
theorem rank_proceed [SwarmClient κ τ] (now : Nat) (p p' : Probe τ) (client client' : κ)
    (h : p.proceed now client = (.waiting p', client')) : p'.rank < p.rank := by
  unfold proceed at h
  split at h
  next hp =>
    have hr : p.rank = 2 * p.policy.maxAttempts.toNat + 4 := by simp [rank, hp]
    have := rank_begin _ _ _ _ _ _ h
    omega
  next attempt _ _ hp =>
    have hr : p.rank = 2 * (p.policy.maxAttempts.toNat + 1 - attempt.toNat) + 1 := by
      simp [rank, hp]
    have := rank_conclude _ _ _ _ _ _ h
    simp only at this
    omega
  next next _ hp =>
    have hr : p.rank = 2 * (p.policy.maxAttempts.toNat + 1 - next.toNat) + 2 := by simp [rank, hp]
    have := rank_begin _ _ _ _ _ _ h
    omega

end Probe

/-- How a check on its own ended, and when. -/
structure CheckRun where
  outcome : CheckOutcome
  endedAt : Nat

/-- Runs a check to its end. Answers none if the client crashed. -/
def Probe.run {κ τ : Type} [SwarmClient κ τ] (cancelAt : Option Nat) (p : Probe τ) (client : κ) :
    Option CheckRun × κ :=
  match cancelAt.filter (· ≤ p.due) with
  | some instant =>
    let (o, client) := p.abort instant client
    (some ⟨o, instant⟩, client)
  | none =>
    match _h : p.proceed p.due client with
    | (.settled o, client) => (some ⟨o, p.due⟩, client)
    | (.crashed, client) => (none, client)
    | (.waiting p', client) => p'.run cancelAt client
termination_by p.rank
decreasing_by exact rank_proceed _ _ _ _ _ _h

/-- Checks a magnet from the instant zero on. -/
def runCheck {κ τ : Type} [SwarmClient κ τ] (client : κ) (magnet : String) (policy : RetryPolicy)
    (cancelAt : Option Nat) : Option CheckRun × κ :=
  (Probe.start magnet policy).run cancelAt client

end SwarmSampler
