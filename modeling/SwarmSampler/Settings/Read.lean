import SwarmSampler.Exchange.Read
import SwarmSampler.Settings
import SwarmSampler.Time.Span.Text

/-
Reading settings from a document of any form. Every setting may be left out,
which leaves it as it is by default; spans are texts such as `1h 30m`. A span
that overflows ends the program, unless the reading fails before it comes to it.
-/

namespace SwarmSampler.Settings

open Document

variable {δ : Type} [TaggedDocument δ]

def span? (v : δ) : Option Span := (text? v).bind Span.ofText?

/-- A path, or none where it is null. -/
def path? (v : δ) : Option (Option String) := optional? text? (some v)

def records? (v : δ) : Option (List TargetRecord) :=
  (items? v).bind fun list => list.mapM Exchange.targetRecord?

def fields : List (List String) :=
  [["database_path"], ["log_dir"], ["cycle_interval"], ["max_attempts"], ["backoff"],
   ["query_timeout"], ["warmup"], ["poll_interval"], ["concurrency"], ["selection_policy"],
   ["history_depth"], ["store_write_attempts"], ["store_retry_delay"],
   ["store_failure_threshold"], ["targets"]]

/-- Settings from members, with defaults for what is missing. -/
def ofMembers? (members : Members δ) : Option Settings := do
  match ← slots? fields true members with
  | [databasePath, logDir, cycleInterval, maxAttempts, backoff, queryTimeout, warmup, pollInterval,
     concurrency, selection, historyDepth, storeWriteAttempts, storeRetryDelay,
     storeFailureThreshold, targets] =>
    some ⟨← defaulted? standard.databasePath text? databasePath,
      ← defaulted? standard.logDir path? logDir,
      ← defaulted? standard.cycleInterval span? cycleInterval,
      ← defaulted? standard.maxAttempts count32? maxAttempts,
      ← defaulted? standard.backoff span? backoff,
      ← defaulted? standard.queryTimeout span? queryTimeout,
      ← defaulted? standard.warmup span? warmup,
      ← defaulted? standard.pollInterval span? pollInterval,
      ← defaulted? standard.concurrency count64? concurrency,
      ← defaulted? standard.selection (Exchange.selection? 1) selection,
      ← defaulted? standard.historyDepth count64? historyDepth,
      ← defaulted? standard.storeWriteAttempts count32? storeWriteAttempts,
      ← defaulted? standard.storeRetryDelay span? storeRetryDelay,
      ← defaulted? standard.storeFailureThreshold count32? storeFailureThreshold,
      ← defaulted? standard.targets records? targets⟩
  | _ => none

def ofDocument? (v : δ) : Option Settings := (members? v).bind ofMembers?

def spanFields : List String :=
  ["cycle_interval", "backoff", "query_timeout", "warmup", "poll_interval", "store_retry_delay"]

/-- Whether the value of a field is a span that overflows. -/
def overflowsAt (field : Nat) (v : δ) : Bool :=
  (fields[field]?).any (fun spellings => spellings.any spanFields.contains) &&
    (text? v).any fun s => Span.read s matches .error .overflow

/-- Whether reading members comes upon a span that overflows while all before it could be read. -/
def membersOverflow : Members δ → Bool
  | .named list =>
    (List.range list.length).any fun i =>
      (list[i]?).any fun member =>
        (fieldOf fields member.1).any fun field =>
          overflowsAt field member.2 && (given fields (list.take i) field).isEmpty &&
            (ofMembers? (.named (list.take i))).isSome
  | .ordered items =>
    (List.range items.length).any fun i =>
      (items[i]?).any fun v => overflowsAt i v && (ofMembers? (.ordered (items.take i))).isSome

/-- Whether reading a document comes upon a span that overflows. -/
def overflows (v : δ) : Bool := (members? v).any membersOverflow

end SwarmSampler.Settings
