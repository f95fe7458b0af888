import SwarmSampler.Settings.Load

/-
What the check of settings promises. Each bound keeps one setting within a
range, and no file is loaded that breaks one. The time an attempt may take is
not bounded that way: warm-up and query timeout are, but the pause between two
polls has no longest one, and the three together need not fit into a span. The
retry policy is there exactly if they do.
-/

namespace SwarmSampler

namespace Settings

/-- Settings within all their bounds. -/
structure Bounded (s : Settings) : Prop where
  cycleInterval : minCycleInterval ≤ s.cycleInterval
  maxAttempts : 1 ≤ s.maxAttempts ∧ s.maxAttempts ≤ maxAttemptsAllowed
  backoff : s.backoff ≤ maxBackoff
  queryTimeout : minQueryTimeout ≤ s.queryTimeout ∧ s.queryTimeout ≤ maxQueryTimeout
  warmup : s.warmup ≤ maxWarmup
  pollInterval : s.pollInterval ≠ Span.zero
  concurrency : 1 ≤ s.concurrency ∧ s.concurrency ≤ maxConcurrency
  subsetSize : s.selection ≠ .randomSubset 0
  historyDepth : 2 ≤ s.historyDepth
  storeWriteAttempts : 1 ≤ s.storeWriteAttempts ∧ s.storeWriteAttempts ≤ maxStoreWriteAttempts
  storeFailureThreshold : s.storeFailureThreshold ≠ 0

/-- Nothing is wrong with settings exactly if they are within all their bounds. -/
theorem fault?_eq_none_iff {s : Settings} : s.fault? = none ↔ s.Bounded := by
  have all_hold : s.fault? = none ↔ ∀ bound ∈ s.bounds, bound.1 = false := by
    simp only [fault?, Option.map_eq_none_iff, List.find?_eq_none, Bool.not_eq_true]
  rw [all_hold]
  constructor
  · intro h
    simp only [bounds, List.forall_mem_cons, decide_eq_false_iff_not, not_or, Span.not_lt, UInt32.not_lt,
      UInt64.not_lt] at h
    obtain ⟨cycle, attempts, backoff, timeout, warmup, poll, permits, subset, depth, writes, threshold, -⟩ := h
    exact ⟨cycle, attempts, backoff, timeout, warmup, poll, permits, subset, depth, writes, threshold⟩
  · rintro ⟨cycle, attempts, backoff, timeout, warmup, poll, permits, subset, depth, writes, threshold⟩
    simp only [bounds, List.forall_mem_cons, decide_eq_false_iff_not, not_or, Span.not_lt, UInt32.not_lt,
      UInt64.not_lt]
    exact ⟨cycle, attempts, backoff, timeout, warmup, poll, permits, subset, depth, writes, threshold, by simp⟩

/-- Settings are loaded only if nothing is wrong with them. -/
theorem fault?_of_load {files : Files} {path : String} {s : Settings} (h : load files path = .ok s) :
    s.fault? = none := by
  unfold load at h
  split at h
  · cases h
  · split at h
    · cases h
    · split at h
      · cases h
      · next hf =>
        cases h
        exact hf

/-! ## The bound on an attempt -/

/-- The time an attempt is given, in nanoseconds: warm-up, query timeout, and the pause between two polls
or the least slack, whichever is longer. -/
def attemptBound (s : Settings) : Nat :=
  s.warmup.nanos + s.queryTimeout.nanos + max s.pollInterval.nanos minAttemptSlack.nanos

/-- A bound that fits into a span makes a policy with that bound. -/
theorem retryPolicy?_of_lt {s : Settings} (h : s.attemptBound < spanLimit) :
    s.retryPolicy? = some ⟨s.maxAttempts, s.backoff, s.queryTimeout, ⟨s.attemptBound, h⟩⟩ := by
  have hengine : s.warmup.nanos + s.queryTimeout.nanos < spanLimit := by
    unfold attemptBound at h
    omega
  simp only [retryPolicy?, Span.add?, Span.ofNanos?_of_lt hengine, Option.bind_eq_bind, Option.bind_some,
    Span.longer_nanos]
  rw [← attemptBound, Span.ofNanos?_of_lt h, Option.bind_some]

theorem retryPolicy?_eq_none_iff {s : Settings} : s.retryPolicy? = none ↔ spanLimit ≤ s.attemptBound := by
  constructor
  · intro h
    by_cases hlt : s.attemptBound < spanLimit
    · rw [retryPolicy?_of_lt hlt] at h
      cases h
    · omega
  · intro h
    cases hw : s.warmup.add? s.queryTimeout with
    | none => simp [retryPolicy?, hw]
    | some engine =>
      have hengine := Span.nanos_of_add? hw
      have hslack : engine.add? (s.pollInterval.longer minAttemptSlack) = none := by
        rw [Span.add?, Span.ofNanos?_eq_none_iff, hengine, Span.longer_nanos]
        exact h
      simp [retryPolicy?, hw, hslack]

/-- What a policy is made of. -/
theorem eq_of_retryPolicy? {s : Settings} {policy : RetryPolicy} (h : s.retryPolicy? = some policy) :
    ∃ bounded : s.attemptBound < spanLimit,
      policy = ⟨s.maxAttempts, s.backoff, s.queryTimeout, ⟨s.attemptBound, bounded⟩⟩ := by
  by_cases hlt : s.attemptBound < spanLimit
  · rw [retryPolicy?_of_lt hlt] at h
    exact ⟨hlt, (Option.some.inj h).symm⟩
  · rw [retryPolicy?_eq_none_iff.2 (by omega)] at h
    cases h

/-- Warm-up and query timeout within their bounds take twenty minutes at most. -/
theorem Bounded.engine_le {s : Settings} (h : s.Bounded) :
    s.warmup.nanos + s.queryTimeout.nanos ≤ 1_200_000_000_000 := by
  have hw : s.warmup.nanos ≤ maxWarmup.nanos := h.warmup
  have hq : s.queryTimeout.nanos ≤ maxQueryTimeout.nanos := h.queryTimeout.2
  have : maxWarmup.nanos = 600_000_000_000 := by decide
  have : maxQueryTimeout.nanos = 600_000_000_000 := by decide
  omega

end Settings

end SwarmSampler
