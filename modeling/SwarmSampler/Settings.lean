import SwarmSampler.Retry
import SwarmSampler.Summary

/-
The settings of the sampler, the bounds they are held to, and the retry policy
they amount to. The bounds are checked in a fixed order and the first one
broken is reported.
-/

namespace SwarmSampler

structure Settings where
  databasePath : String
  logDir : Option String
  cycleInterval : Span
  maxAttempts : UInt32
  backoff : Span
  queryTimeout : Span
  warmup : Span
  pollInterval : Span
  concurrency : UInt64
  selection : Selection
  historyDepth : UInt64
  storeWriteAttempts : UInt32
  storeRetryDelay : Span
  storeFailureThreshold : UInt32
  targets : List TargetRecord
  deriving DecidableEq

namespace Settings

/-- What is used where nothing is set. -/
def standard : Settings where
  databasePath := "dht_health.sqlite"
  logDir := none
  cycleInterval := Span.ofMillis 300000
  maxAttempts := 3
  backoff := Span.ofMillis 60000
  queryTimeout := Span.ofMillis 10000
  warmup := Span.ofMillis 5000
  pollInterval := Span.ofMillis 500
  concurrency := 4
  selection := .all
  historyDepth := 10
  storeWriteAttempts := 3
  storeRetryDelay := Span.ofMillis 250
  storeFailureThreshold := 5
  targets := []

def maxAttemptsAllowed : UInt32 := 10

def maxConcurrency : UInt64 := 256

def minCycleInterval : Span := Span.ofMillis 1000

def maxBackoff : Span := Span.ofMillis 3600000

def minQueryTimeout : Span := Span.ofMillis 100

def maxQueryTimeout : Span := Span.ofMillis 600000

def maxWarmup : Span := Span.ofMillis 600000

def maxStoreWriteAttempts : UInt32 := 20

/-- What an attempt is given at least beyond warm-up and query. -/
def minAttemptSlack : Span := Span.ofMillis 1000

inductive Fault
  | cycleInterval (given : Span)
  | maxAttempts (given : UInt32)
  | backoff (given : Span)
  | queryTimeout (given : Span)
  | warmup (given : Span)
  | pollInterval
  | concurrency (given : UInt64)
  | subsetSize
  | historyDepth (given : UInt64)
  | storeWriteAttempts (given : UInt32)
  | storeFailureThreshold
  deriving DecidableEq

def Fault.message : Fault → String
  | cycleInterval d =>
    "cycle_interval " ++ d.label ++ " is below the minimum " ++ minCycleInterval.label
  | maxAttempts n =>
    "max_attempts " ++ toString n.toNat ++ " is out of allowed range (1..=" ++
      toString maxAttemptsAllowed.toNat ++ ")"
  | backoff d => "backoff " ++ d.label ++ " exceeds " ++ maxBackoff.label
  | queryTimeout d =>
    "query_timeout " ++ d.label ++ " is out of allowed range (" ++ minQueryTimeout.label ++
      "..=" ++ maxQueryTimeout.label ++ ")"
  | warmup d => "warmup " ++ d.label ++ " exceeds " ++ maxWarmup.label
  | pollInterval => "poll_interval must be positive"
  | concurrency n =>
    "concurrency " ++ toString n.toNat ++ " is out of allowed range (1..=" ++
      toString maxConcurrency.toNat ++ ")"
  | subsetSize => "random_subset size must be at least 1"
  | historyDepth n =>
    "history_depth " ++ toString n.toNat ++ " is too small to derive growth"
  | storeWriteAttempts n =>
    "store_write_attempts " ++ toString n.toNat ++ " is out of allowed range (1..=" ++
      toString maxStoreWriteAttempts.toNat ++ ")"
  | storeFailureThreshold => "store_failure_threshold must be at least 1"

/-- All bounds in order, each with whether it is broken. -/
def bounds (s : Settings) : List (Bool × Fault) :=
  [(s.cycleInterval < minCycleInterval, .cycleInterval s.cycleInterval),
   (s.maxAttempts < 1 ∨ maxAttemptsAllowed < s.maxAttempts, .maxAttempts s.maxAttempts),
   (maxBackoff < s.backoff, .backoff s.backoff),
   (s.queryTimeout < minQueryTimeout ∨ maxQueryTimeout < s.queryTimeout,
     .queryTimeout s.queryTimeout),
   (maxWarmup < s.warmup, .warmup s.warmup),
   (s.pollInterval = Span.zero, .pollInterval),
   (s.concurrency < 1 ∨ maxConcurrency < s.concurrency, .concurrency s.concurrency),
   (s.selection = .randomSubset 0, .subsetSize),
   (s.historyDepth < 2, .historyDepth s.historyDepth),
   (s.storeWriteAttempts < 1 ∨ maxStoreWriteAttempts < s.storeWriteAttempts,
     .storeWriteAttempts s.storeWriteAttempts),
   (s.storeFailureThreshold = 0, .storeFailureThreshold)]

/-- The first broken bound. -/
def fault? (s : Settings) : Option Fault := (s.bounds.find? (·.1)).map (·.2)

/-- The retry policy, none when the attempt's bound is beyond what a span can hold. -/
def retryPolicy? (s : Settings) : Option RetryPolicy := do
  let engine ← s.warmup.add? s.queryTimeout
  let deadline ← engine.add? (s.pollInterval.longer minAttemptSlack)
  some ⟨s.maxAttempts, s.backoff, s.queryTimeout, deadline⟩

end Settings

end SwarmSampler
