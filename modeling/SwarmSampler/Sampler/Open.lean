import SwarmSampler.Logging
import SwarmSampler.Reader
import SwarmSampler.Sampler
import SwarmSampler.Settings
import SwarmSampler.Store.Open

/-
A sampler opened from its settings. The settings are checked first, then the
log is started if a directory is set for it, then the store is opened. Targets
in the settings make up the catalog; without any, the store serves as one.
-/

namespace SwarmSampler

/-- Why a sampler cannot be opened: a failure, or an attempt's bound that no span can hold. -/
inductive OpenFault
  | failure (failure : Failure)
  | boundTooLong

namespace Catalog

/-- A catalog as a source of targets for a sampler on some store that has the catalog's store in
it. -/
def source {σ : Type} (storeOf : σ → Store) (c : Catalog) : TargetSource σ :=
  ⟨c.sourceName, fun s => c.targets (storeOf s)⟩

end Catalog

namespace Settings

def check (s : Settings) : Except OpenFault Unit :=
  match s.fault? with
  | some fault => .error (.failure ⟨.config, fault.message⟩)
  | none => .ok ()

def catalog (s : Settings) : Catalog :=
  if s.targets.isEmpty then .stored none else .ofRecords s.targets

def writer (s : Settings) : WriterSettings :=
  ⟨s.storeWriteAttempts, s.storeRetryDelay, s.storeFailureThreshold⟩

/-- Starts the log if a directory is set for it. A log that runs already is kept. -/
def startLog (s : Settings) (files : Files) : Except OpenFault Files :=
  match s.logDir with
  | none => .ok files
  | some dir =>
    match Logging.start files dir.toList with
    | (.ok _, files) => .ok files
    | (.error f, files) => if f.kind = .internal then .ok files else .error (.failure f)

end Settings

namespace Sampler

variable {κ τ σ : Type}

/-- A sampler without runs. -/
def ofSettings (settings : Settings) (chance : Chance) (source : TargetSource σ) (client : κ)
    (store : σ) : Except OpenFault (Sampler κ τ σ) := do
  settings.check
  match settings.retryPolicy? with
  | none => throw .boundTooLong
  | some policy =>
    return {
      plan := ⟨policy, settings.selection, settings.cycleInterval, settings.historyDepth⟩
      chance := chance
      drawn := 0
      now := 0
      source := source
      client := client
      store := store
      writer := .start settings.writer
      pool := .full settings.concurrency.toNat
      checks := []
      started := 0
      runs := []
      reports := []
      halted := false }

/-- Opens the store of a sampler at the path of its settings. -/
def openStore (settings : Settings) (files : Files) : Except OpenFault (Files × Store.Opened) :=
  match Store.openAt files settings.databasePath with
  | .ok opened => .ok opened
  | .error f => .error (.failure f)

/-- A sampler with its store, the files it was opened among, and a reader. -/
structure Opened (κ τ σ : Type) where
  sampler : Sampler κ τ σ
  home : Store.Home
  files : Files
  reader : MetricsReader

def openFrom (settings : Settings) (chance : Chance) (client : κ) (files : Files) :
    Except OpenFault (Opened κ τ Store) := do
  settings.check
  let files ← settings.startLog files
  let (files, opened) ← openStore settings files
  let sampler ← ofSettings settings chance (settings.catalog.source id) client opened.store
  return ⟨sampler, opened.home, files, .ofDepth settings.historyDepth⟩

end Sampler

end SwarmSampler
