import SwarmSampler.Exchange.Write
import SwarmSampler.Settings
import SwarmSampler.Time.Span.Text

/-
Writing settings as a JSON value, with every setting in it.
-/

namespace SwarmSampler.Settings

def ofSpan (s : Span) : Json := .text s.text

def toJson (s : Settings) : Json :=
  .record [("database_path", .text s.databasePath), ("log_dir", .optional .text s.logDir),
    ("cycle_interval", ofSpan s.cycleInterval), ("max_attempts", .int s.maxAttempts.toNat),
    ("backoff", ofSpan s.backoff), ("query_timeout", ofSpan s.queryTimeout),
    ("warmup", ofSpan s.warmup), ("poll_interval", ofSpan s.pollInterval),
    ("concurrency", .int s.concurrency.toNat),
    ("selection_policy", Exchange.ofSelection s.selection),
    ("history_depth", .int s.historyDepth.toNat),
    ("store_write_attempts", .int s.storeWriteAttempts.toNat),
    ("store_retry_delay", ofSpan s.storeRetryDelay),
    ("store_failure_threshold", .int s.storeFailureThreshold.toNat),
    ("targets", .array (s.targets.map Exchange.ofTargetRecord))]

end SwarmSampler.Settings
