import SwarmSampler.Store.Query

/-
What sampling needs of a store, and a store made to fail on demand that keeps
what it is given as it is.
-/

namespace SwarmSampler

/-- What the writer and the scheduler use of a store. -/
class SampleStore (σ : Type) where
  /-- Registers targets at an instant under the name of their source. -/
  register : Stamp → String → List MonitoringTarget → σ → Except Failure Nat × σ
  /-- Appends a sample and its trend. -/
  append : HealthSample → Option MetricsSnapshot → σ → Except Failure HealthSample × σ
  /-- The newest ok samples of a target, the oldest first. -/
  lastOk : String → UInt64 → σ → Except Failure (List HealthSample)

instance : SampleStore Store where
  register := Store.register
  append := Store.append
  lastOk targetId n s := s.lastOkSamples targetId n

/-- When a faulty store fails. -/
structure FaultPlan where
  /-- The appends that fail, counted from one. -/
  failAppends : List Nat
  /-- The append from which on all fail. -/
  failFrom : Option Nat
  failHistory : Bool
  failRegister : Bool

/-- A store that fails as planned and otherwise keeps the rows it is given. -/
structure FaultyStore where
  plan : FaultPlan
  calls : Nat
  rows : List HealthSample

namespace FaultyStore

def fails (plan : FaultPlan) (call : Nat) : Bool :=
  plan.failAppends.contains call || plan.failFrom.any (· ≤ call)

/-- Appends a row as it is, unless the call is to fail. -/
def append (sample : HealthSample) (f : FaultyStore) : Except Failure HealthSample × FaultyStore :=
  let call := f.calls + 1
  if fails f.plan call then
    (.error ⟨.store, "append " ++ toString call ++ " refused"⟩, { f with calls := call })
  else (.ok sample, { f with calls := call, rows := f.rows ++ [sample] })

/-- The last ok rows of a target in the order they came. -/
def lastOk (targetId : String) (n : UInt64) (f : FaultyStore) :
    Except Failure (List HealthSample) :=
  if f.plan.failHistory then .error ⟨.store, "history refused"⟩
  else
    let rows := f.rows.filter fun r => r.targetId = targetId ∧ r.outcome = .ok
    .ok (rows.drop (rows.length - n.toNat))

instance : SampleStore FaultyStore where
  register _ _ targets f :=
    if f.plan.failRegister then (.error ⟨.store, "register refused"⟩, f)
    else (.ok targets.length, f)
  append sample _ f := f.append sample
  lastOk := lastOk

end FaultyStore

/-- A store with a faulty one in front of it that takes all that sampling does. -/
structure FrontedStore where
  store : Store
  front : FaultyStore

namespace FrontedStore

/-- Keeps the store behind what was done in front of it. -/
def behind {α : Type} (store : Store) (x : α × FaultyStore) : α × FrontedStore :=
  (x.1, ⟨store, x.2⟩)

instance : SampleStore FrontedStore where
  register now source targets s := behind s.store (SampleStore.register now source targets s.front)
  append sample metrics s := behind s.store (SampleStore.append sample metrics s.front)
  lastOk targetId n s := SampleStore.lastOk targetId n s.front

end FrontedStore

end SwarmSampler
